import Scriptlet.Proofs.Token.Places
import Scriptlet.Report.Basic
import Scriptlet.Report.Lines

/-! Two ways of counting the place of an error. Positions of tokens count characters and newlines. A
report counts characters up to an offset that was measured in bytes, and all line breaks. -/
namespace Scriptlet

namespace Position

/-- The position of an offset, counted character by character. `ends` says behind which characters
a line ends. -/
def counted (ends : Nat → Bool) : Nat → Position
  | 0 => ⟨1, 1⟩
  | o + 1 =>
    if ends o then ⟨(counted ends o).line + 1, 1⟩
    else ⟨(counted ends o).line, (counted ends o).column + 1⟩

variable {f g : Nat → Bool} {m n : Nat}

end Position

namespace Report

/-- A line ends behind the character with the index, and another line follows. A carriage return
ends no line if a line feed follows. -/
def EndsLine (cs : List Char) (i : Nat) : Prop :=
  i + 1 < cs.length ∧ ∃ c ∈ cs[i]?, isBreak c ∧ ¬ (c = '\r' ∧ cs[i + 1]? = some '\n')

instance (cs : List Char) (i : Nat) : Decidable (EndsLine cs i) :=
  inferInstanceAs (Decidable (_ ∧ _))

/-- The position of an offset that counts characters, with lines that end at all line breaks. -/
def place (source : String) (o : Nat) : Position := .counted (EndsLine source.toList ·) o

/-- The span starts in the text or right behind it, and ends at most one further. -/
def Inside (r : Report) : Prop :=
  r.span.start ≤ r.source.length ∧ r.span.stop ≤ r.source.length + 1

end Report

end Scriptlet
