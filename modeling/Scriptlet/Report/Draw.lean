import Scriptlet.Report.Basic
import Scriptlet.Report.Lines

/-! Reports drawn for a terminal. The offsets of their spans are read as counts of characters. -/
namespace Scriptlet

namespace Report

/-- A text in a terminal colour. -/
def paint (code text : String) : String := "\x1b[" ++ code ++ "m" ++ text ++ "\x1b[0m"

def errorColour : String := "31"
def marginColour : String := "38;5;246"
def skippedColour : String := "38;5;240"
def plainColour : String := "38;5;249"
def labelColour : String := "91"

/-- Copies of a text, one after the other. -/
def times (n : Nat) (s : String) : String := String.join (List.replicate n s)

/-- A piece of the label's drawing. -/
def mark (s : String) : String := paint labelColour s

/-- The first and the last line that the span touches. There are none if the span starts or ends
behind the text. -/
def extent? (r : Report) : Option (Nat × Nat) := do
  let first ← lineAt? r.source r.span.start
  let last ← if r.span.stop ≤ r.span.start then some first else lineAt? r.source (r.span.stop - 1)
  return (first, last)

def lineAt (r : Report) (i : Nat) : Line := ((linesOf r.source)[i]?).getD ⟨0, []⟩

/-- The position that the heading names. -/
def position? (r : Report) : Option Position := do
  let (first, _) ← r.extent?
  return ⟨first + 1, r.span.start - (r.lineAt first).start + 1⟩

def covers (r : Report) (offset : Nat) : Bool := r.span.start ≤ offset && offset < r.span.stop

/-- The left margins, for line numbers of the given width. -/
def numberMargin (width i : Nat) : String :=
  let n := toString (i + 1)
  " " ++ paint marginColour ("".pushn ' ' (width - n.length) ++ n ++ " │") ++ " "

def blankMargin (width : Nat) : String :=
  " " ++ paint skippedColour ("".pushn ' ' (width + 1) ++ "│") ++ " "

def gapMargin (width : Nat) : String :=
  " " ++ paint skippedColour ("".pushn ' ' (width + 1) ++ "┆") ++ " "

/-- The shown part of a line, every character in its colour. -/
def sourceRow (r : Report) (l : Line) : String :=
  String.join (l.shown.zipIdx.map fun (c, i) =>
    let colour := if r.covers (l.start + i) then labelColour else plainColour
    let (width, d) := cell i c
    times (if c == '\t' then width else 1) (paint colour (String.singleton d)))

/-- A column of a drawing: its first cell, and the tail of a wide one. -/
def column (width : Nat) (head tail : String) : String :=
  if width = 0 then "" else head ++ times (width - 1) tail

/-- The rows under a span within one line: a bar under the span, and the label below its middle. -/
def singleRows (r : Report) (width first : Nat) : String :=
  let l := r.lineAt first
  if l.stop < r.span.stop then blankMargin width ++ "\n"
  else
    let columns := (l.widths (r.span.stop - l.start + 2)).zipIdx
    let middle := max ((r.span.start + r.span.stop) / 2) r.span.start - l.start
    let bar := columns.map fun (w, i) =>
      if i = middle then
        if r.covers (l.start + i) then column w (mark "┬") (mark "─")
        else column w (mark "│") (mark " ")
      else if r.covers (l.start + i) then column w (mark "─") (mark "─")
      else column w " " " "
    let arrow := columns.map fun (w, i) =>
      if i = middle then column w (mark "╰") (mark "─")
      else if middle < i then column w (mark "─") (mark "─")
      else column w " " " "
    numberMargin width first ++ r.sourceRow l ++ "\n" ++
      blankMargin width ++ String.join bar ++ "\n" ++
      blankMargin width ++ String.join arrow ++ " " ++ r.label ++ "\n"

/-- The rows of a span over several lines: its first and its last line, and one gap for the lines
between them. `inGap` says whether the line before was left out. -/
def multiRows (r : Report) (width : Nat) : Bool → List (Line × Nat) → String
  | _, [] => ""
  | inGap, (l, i) :: ls =>
    let starts := l.contains r.span.start
    let ends := l.contains (r.span.stop - 1)
    if starts || ends then
      let row := numberMargin width i ++ mark (if starts then "╭" else "├") ++ mark "─" ++ mark "▶" ++
        mark " " ++ r.sourceRow l ++ "\n"
      let t := (l.widths (l.chars.length + 2)).sum
      let tail :=
        if ends then
          blankMargin width ++ mark "│" ++ "".pushn ' ' (3 + t) ++ "\n" ++
            blankMargin width ++ mark "╰" ++ times (3 + t) (mark "─") ++ " " ++ r.label ++ "\n"
        else ""
      row ++ tail ++ r.multiRows width false ls
    else if inGap then r.multiRows width true ls
    else gapMargin width ++ mark "┆" ++ "   \n" ++ r.multiRows width true ls

/-- The whole report. It ends behind the message if the span lies outside the text. -/
def drawn (r : Report) : String :=
  let head := paint errorColour "Error:" ++ " " ++ r.message ++ "\n"
  match r.extent?, r.position? with
  | some (first, last), some p =>
    let width := (toString (last + 1)).length
    let margin (s : String) : String := paint marginColour s
    let place := s!"{r.path}:{p.line}:{p.column}"
    let rows :=
      if first = last then r.singleRows width first
      else r.multiRows width false
        (((linesOf r.source).zipIdx.drop first).take (last + 1 - first))
    head ++ "".pushn ' ' (width + 2) ++ margin "╭" ++ margin "─" ++ margin "[" ++ " " ++ place ++
      " " ++ margin "]" ++ "\n" ++ "".pushn ' ' (width + 2) ++ margin "│" ++ "\n" ++ rows ++
      margin (times (width + 2) "─" ++ "╯") ++ "\n"
  | _, _ => head

end Report

/-- The drawing for a terminal. It can always be written. -/
def Drawing.terminal : Drawing := fun r => some r.drawn.toUTF8

end Scriptlet
