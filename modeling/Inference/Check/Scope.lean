import Inference.Symbol

/-!
# Inference.Check.Scope

The variables known while a rule is checked, in nested frames. There is always a current frame;
the outermost one cannot be left.

* `Scope.define`: binds a variable in the current frame, unless its name is bound there already.
* `Scope.lookup?`: the binding of a name in the innermost frame that has one.
-/

namespace Inference

/-- The variables bound in one frame, in the order they were bound. No name is bound twice. -/
abbrev Frame := List Variable

def Frame.lookup? (frame : Frame) (name : String) : Option Variable :=
  frame.find? (·.name == name)

structure Scope where
  current : Frame := []
  /-- The frames around the current one, innermost first. -/
  enclosing : List Frame := []
  deriving DecidableEq

namespace Scope

def empty : Scope := {}

def push (s : Scope) : Scope := ⟨[], s.current :: s.enclosing⟩

/-- Leaves the current frame. The outermost frame stays. -/
def pop (s : Scope) : Scope :=
  match s.enclosing with
  | [] => s
  | frame :: rest => ⟨frame, rest⟩

/-- Binds a variable in the current frame. The answer tells whether the name was free there; if
not, its first binding stays. -/
def define (s : Scope) (v : Variable) : Scope × Bool :=
  match s.current.lookup? v.name with
  | some _ => (s, false)
  | none => ({ s with current := s.current ++ [v] }, true)

def frames (s : Scope) : List Frame := s.current :: s.enclosing

def lookup? (s : Scope) (name : String) : Option Variable :=
  s.frames.findSome? (·.lookup? name)

def isDefined (s : Scope) (name : String) : Bool := (s.lookup? name).isSome

def categoryOf? (s : Scope) (name : String) : Option CategoryId :=
  (s.lookup? name).map (·.category)

def depth (s : Scope) : Nat := s.frames.length

end Scope
end Inference
