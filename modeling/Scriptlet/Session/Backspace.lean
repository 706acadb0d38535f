import Scriptlet.Text.Cluster

/-! Lines with backspaces in them. -/
namespace Scriptlet

/-- A line while it is typed: its characters and the sizes of its clusters, both from the end. -/
structure TypedLine where
  back : List Char
  sizes : List Nat

namespace TypedLine

def empty : TypedLine := ⟨[], []⟩

def text (l : TypedLine) : String := String.ofList l.back.reverse

/-- The size of a cluster in bytes, kept in eight bits. -/
def sizeOf (cluster : List Char) : Nat := (String.ofList cluster).utf8ByteSize % 256

/-- Cuts bytes off the end of a line. There is no result if that would split a character. -/
def cut (n : Nat) : List Char → Option (List Char)
  | [] => if n = 0 then some [] else none
  | c :: back =>
    if n = 0 then some (c :: back)
    else if c.utf8Size ≤ n then cut (n - c.utf8Size) back
    else none

/-- Types one cluster. A backspace takes away as many bytes as the last cluster is said to have; at
the start of the line it does nothing. -/
def press (l : TypedLine) (cluster : List Char) : Option TypedLine :=
  if cluster = ['\x08'] then
    match l.sizes with
    | [] => some l
    | n :: sizes => (cut n l.back).map fun back => { back, sizes }
  else some ⟨cluster.reverse ++ l.back, sizeOf cluster :: l.sizes⟩

end TypedLine

/-- A line with its backspaces carried out. There is no result if one of them would split a
character. -/
def applyBackspaces (line : String) : Option String :=
  ((Text.clusters line.toList).foldlM TypedLine.press TypedLine.empty).map TypedLine.text

end Scriptlet
