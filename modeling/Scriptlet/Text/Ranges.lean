/-! Classes of characters as ranges of code points. Where a module names no other version, its
tables are those of Unicode 17. -/
namespace Scriptlet.Text

/-- Closed ranges of code points, ascending and apart. -/
abbrev Ranges := List (Nat × Nat)

def Ranges.contains (c : Char) : Ranges → Bool
  | [] => false
  | (lo, hi) :: r => lo ≤ c.toNat && (c.toNat ≤ hi || Ranges.contains c r)

end Scriptlet.Text
