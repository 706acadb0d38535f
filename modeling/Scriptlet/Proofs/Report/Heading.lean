import Scriptlet.Parse.Format
import Scriptlet.Proofs.Parse.Origin
import Scriptlet.Proofs.Report.LineStarts
import Scriptlet.Proofs.Text.Splitting
import Scriptlet.Token.Format

/-! The headings of drawn reports against the positions of the errors that they show. -/
namespace Scriptlet

namespace Report

/-- The drawing before the place in a heading. -/
def frame : String :=
  paint marginColour "╭" ++ paint marginColour "─" ++ paint marginColour "[" ++ " "

/-- The text is a report of the message, headed by the path and the position. -/
def Headed (text message path : String) (p : Position) : Prop :=
  ∃ width rows, text = paint errorColour "Error:" ++ " " ++ message ++ "\n" ++
    ("".pushn ' ' width ++ frame ++ s!"{path}:{p.line}:{p.column}" ++ " " ++
      paint marginColour "]" ++ "\n" ++ rows)

private theorem toList_pushn (s : String) (c : Char) (n : Nat) :
    (s.pushn c n).toList = s.toList ++ List.replicate n c := by
  induction n with
  | zero => simp [String.pushn, Nat.repeat]
  | succ n ih =>
    have hpush : s.pushn c (n + 1) = (s.pushn c n).push c := rfl
    rw [hpush, String.toList_push, ih, List.replicate_succ', List.append_assoc]

/-- A number ends at the first character behind it that is no digit. -/
theorem repr_append_inj {m n : Nat} {c : Char} {r r' : List Char} (hc : ¬ c.isDigit)
    (h : m.repr.toList ++ c :: r = n.repr.toList ++ c :: r') : m = n ∧ r = r' := by
  have hdigits : ∀ n : Nat, ∀ d ∈ n.repr.toList, d.isDigit := by
    intro n
    obtain ⟨d, ds, hds, hall⟩ := Text.toList_repr n
    rwa [hds]
  have hstop : ∀ r : List Char, ∀ d ∈ (c :: r).head?, ¬ d.isDigit := by
    intro r d hd
    cases hd
    exact hc
  obtain ⟨hmn, hr⟩ := Text.run_append_inj (hdigits m) (hdigits n) (hstop r) (hstop r') h
  refine ⟨?_, (List.cons.inj hr).2⟩
  rw [← Text.ofDigitChars_repr m, hmn, Text.ofDigitChars_repr]

private theorem toList_frame : ∃ cs, frame.toList = '\x1b' :: cs := by
  simp [frame, paint]

/-- Spaces end at the frame, and numbers at the signs behind them. -/
theorem place_inj {w w' l l' k k' : Nat} {cs path r r' : List Char}
    (h : List.replicate w ' ' ++ '\x1b' :: cs ++ path ++ ':' :: l.repr.toList ++
        ':' :: k.repr.toList ++ ' ' :: r =
      List.replicate w' ' ' ++ '\x1b' :: cs ++ path ++ ':' :: l'.repr.toList ++
        ':' :: k'.repr.toList ++ ' ' :: r') : l = l' ∧ k = k' := by
  simp only [List.append_assoc, List.cons_append] at h
  have hspaces : ∀ n, ∀ c ∈ List.replicate n ' ', decide (c = ' ') := by simp
  have hescape : ∀ r : List Char, ∀ c ∈ ('\x1b' :: r).head?, ¬ decide (c = ' ') := by simp
  obtain ⟨_, hframe⟩ := Text.run_append_inj (hspaces w) (hspaces w') (hescape _) (hescape _) h
  simp only [List.cons.injEq, true_and, List.append_cancel_left_eq] at hframe
  obtain ⟨hline, hbehind⟩ := repr_append_inj (by decide) hframe
  exact ⟨hline, (repr_append_inj (by decide) hbehind).1⟩

theorem toList_heading (path rows : String) (p : Position) (width : Nat) :
    ("".pushn ' ' width ++ frame ++ s!"{path}:{p.line}:{p.column}" ++ " " ++
      paint marginColour "]" ++ "\n" ++ rows).toList =
    List.replicate width ' ' ++ frame.toList ++ path.toList ++ ':' :: p.line.repr.toList ++
      ':' :: p.column.repr.toList ++ ' ' :: (paint marginColour "]" ++ "\n" ++ rows).toList := by
  simp [toList_pushn, toString]

/-- A text has at most one heading. -/
theorem Headed.unique {text message path : String} {p q : Position}
    (hp : Headed text message path p) (hq : Headed text message path q) : p = q := by
  obtain ⟨width, rows, rfl⟩ := hp
  obtain ⟨width', rows', h⟩ := hq
  obtain ⟨cs, hcs⟩ := toList_frame
  have hlist := congrArg String.toList ((String.append_right_inj _).1 h)
  rw [toList_heading, toList_heading, hcs] at hlist
  obtain ⟨hline, hcolumn⟩ := place_inj hlist
  rcases p with ⟨line, column⟩
  rcases q with ⟨line', column'⟩
  exact congrArg₂ Position.mk hline hcolumn

end Report

namespace Report

end Report

namespace Report

variable {draw : Drawing} {drawn : Report → String}

end Report

end Scriptlet
