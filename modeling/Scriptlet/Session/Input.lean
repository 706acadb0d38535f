import Scriptlet.Text.Blank

/-! Standard input as lines of text. -/
namespace Scriptlet.Input

/-- The bytes of each line, without the line feed that ends it. What follows the last line feed is
a line only if it is not empty. -/
def splitLines : List UInt8 → List (List UInt8)
  | [] => []
  | b :: bs =>
    if b = 10 then [] :: splitLines bs
    else match splitLines bs with
      | [] => [[b]]
      | line :: lines => (b :: line) :: lines

/-- The lines of an input; none for a line that is not UTF-8. -/
def lines (input : List UInt8) : List (Option String) :=
  (splitLines input).map fun line => String.fromUTF8? ⟨line.toArray⟩

/-- A line as a program reads it, without carriage returns at its end. A line that is not UTF-8
reads as the empty text. -/
def typed : Option String → String
  | none => ""
  | some s => String.ofList (Text.dropBack (· == '\r') s.toList)

end Scriptlet.Input
