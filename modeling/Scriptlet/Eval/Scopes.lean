import Scriptlet.Value.Basic
import Scriptlet.Eval.Fault

/-! Variables: a stack of frames that map names to values. -/
namespace Scriptlet

/-- The variables of one scope, each name at most once. -/
abbrev Frame := List (String × Value)

namespace Frame

def get? (f : Frame) (name : String) : Option Value := f.lookup name

def contains (f : Frame) (name : String) : Bool := f.any (·.1 == name)

/-- Binds a name. A name that is bound already gets the new value. -/
def insert (name : String) (v : Value) : Frame → Frame
  | [] => [(name, v)]
  | (n, u) :: f => if n = name then (n, v) :: f else (n, u) :: insert name v f

end Frame

/-- The frames from the inside out. There is always one, and the last is the global one. -/
structure Scopes where
  inner : Frame
  outer : List Frame
deriving DecidableEq

namespace Scopes

/-- The global frame alone, without variables. -/
def empty : Scopes := ⟨[], []⟩

def frames (s : Scopes) : List Frame := s.inner :: s.outer

def depth (s : Scopes) : Nat := s.outer.length + 1

def enter (s : Scopes) : Scopes := ⟨[], s.frames⟩

/-- Leaves the innermost scope; the global one is never left. -/
def exit (s : Scopes) : Scopes :=
  match s.outer with
  | [] => s
  | f :: fs => ⟨f, fs⟩

/-- Binds a name in the innermost frame. -/
def declare (s : Scopes) (name : String) (v : Value) : Scopes := { s with inner := s.inner.insert name v }

/-- The value of the innermost variable of that name. -/
def get? (s : Scopes) (name : String) : Option Value := s.frames.findSome? (·.get? name)

/-- The frames with a new value for the first variable of that name. -/
def assignFrames (name : String) (v : Value) : List Frame → Option (List Frame)
  | [] => none
  | f :: fs =>
    if f.contains name then some (f.insert name v :: fs) else (assignFrames name v fs).map (f :: ·)

/-- Gives a new value to the innermost variable of that name. -/
def assign (s : Scopes) (name : String) (v : Value) : Except Fault Scopes :=
  if s.inner.contains name then .ok { s with inner := s.inner.insert name v }
  else match assignFrames name v s.outer with
    | some fs => .ok { s with outer := fs }
    | none => .error (.undefinedVariable name)

end Scopes

end Scriptlet
