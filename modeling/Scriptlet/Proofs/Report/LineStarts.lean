import Scriptlet.Proofs.Report.Places
import Scriptlet.Report.Draw

/-! The lines of a report for a terminal, and the position that its heading names. -/
namespace Scriptlet.Report

/-- Where lines start, the first of them at the front. -/
def starts (ls : List (List Char)) : List Nat := (placeLines 0 ls).map Line.start

end Scriptlet.Report
