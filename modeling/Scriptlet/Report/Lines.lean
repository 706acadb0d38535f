import Scriptlet.Text.Blank
import Scriptlet.Text.Width

/-! The lines of a source text as a report shows them. -/
namespace Scriptlet.Report

/-- Characters that end a line; a carriage return and a line feed together end one line. -/
def isBreak (c : Char) : Bool :=
  (10 ≤ c.toNat && c.toNat ≤ 13) || c.toNat == 0x85 || c.toNat == 0x2028 || c.toNat == 0x2029

/-- The text cut behind every line break. -/
def splitLines : List Char → List (List Char)
  | [] => []
  | '\r' :: '\n' :: cs => ['\r', '\n'] :: splitLines cs
  | c :: cs =>
    if isBreak c then [c] :: splitLines cs
    else match splitLines cs with
      | [] => [[c]]
      | l :: ls => (c :: l) :: ls

/-- A line with its break, and the number of characters before it. -/
structure Line where
  start : Nat
  chars : List Char

namespace Line

/-- The offset behind the line and its break. -/
def stop (l : Line) : Nat := l.start + l.chars.length

/-- The line without white space at its end. -/
def shown (l : Line) : List Char := Text.dropBack Text.isBlank l.chars

def contains (l : Line) (offset : Nat) : Bool := l.start ≤ offset && offset < l.stop

end Line

/-- Lines with their offsets, the first of them at `start`. -/
def placeLines (start : Nat) : List (List Char) → List Line
  | [] => []
  | l :: ls => ⟨start, l⟩ :: placeLines (start + l.length) ls

/-- The lines of a text. An empty text has one empty line. -/
def linesOf (source : String) : List Line :=
  match splitLines source.toList with
  | [] => [⟨0, []⟩]
  | ls => placeLines 0 ls

/-- The index of the last line that starts at or before an offset, counted in characters. The
offset behind the last character belongs to the last line; further ones belong to none. -/
def lineAt? (source : String) (offset : Nat) : Option Nat :=
  if offset ≤ source.length then
    some (((linesOf source).takeWhile (·.start ≤ offset)).length - 1)
  else none

/-- The width of a character that stands in the given column, and the character that is drawn.
A tab reaches to the next multiple of four. -/
def cell (column : Nat) (c : Char) : Nat × Char :=
  if c == '\t' then (4 - column % 4, ' ')
  else if Text.isBlank c then (1, ' ')
  else (Text.columns c, c)

/-- The widths of the first `n` columns of a line; those past its shown part are one wide. -/
def Line.widths (l : Line) (n : Nat) : List Nat :=
  let ws := l.shown.zipIdx.map fun (c, i) => (cell i c).1
  ws.take n ++ List.replicate (n - ws.length) 1

end Scriptlet.Report
