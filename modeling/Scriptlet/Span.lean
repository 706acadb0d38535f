/-! Places in a source text: lines and columns, byte offsets, and spans of bytes. -/
namespace Scriptlet

/-- A line and a column, both counted from one. Columns count characters. -/
structure Position where
  line : Nat
  column : Nat
deriving DecidableEq, Inhabited, Repr

/-- The form in which messages name a position. -/
def Position.text (p : Position) : String := s!"Line {p.line}, Column {p.column}"

/-- Where reading stands in a source text. -/
structure Location where
  /-- The number of bytes before this place. -/
  offset : Nat
  position : Position
deriving DecidableEq, Inhabited, Repr

namespace Location

/-- The start of a text. -/
def start : Location := ⟨0, ⟨1, 1⟩⟩

/-- The location behind a character that stands at `l`. -/
def advance (l : Location) (c : Char) : Location where
  offset := l.offset + c.utf8Size
  position := if c = '\n' then ⟨l.position.line + 1, 1⟩ else ⟨l.position.line, l.position.column + 1⟩

/-- The location behind a text that starts at `l`. -/
def after (l : Location) (cs : List Char) : Location := cs.foldl advance l

end Location

/-- A range of bytes, kept as two 32-bit numbers. -/
structure Span where
  start : Nat
  length : Nat
deriving DecidableEq, Inhabited, Repr

namespace Span

/-- The greatest 32-bit number, `2 ^ 32 - 1`. -/
def limit : Nat := 4294967295

/-- The span between two offsets. Start and length stop at the greatest 32-bit number, and the
length is zero if the end lies before the start. -/
def between (start stop : Nat) : Span := ⟨min start limit, min (stop - start) limit⟩

/-- The offset behind the last byte. -/
def stop (s : Span) : Nat := s.start + s.length

end Span

end Scriptlet
