import Scriptlet.Decimal.Binary

/-! The decimal with the fewest digits among those that round to a given binary number. -/
namespace Scriptlet.Decimal

/-- The number `digits * 10 ^ exponent`. -/
structure Digits where
  digits : Nat
  exponent : Int
deriving DecidableEq

namespace Digits

/-- Comparison of a decimal with `n * 2 ^ j`, without rounding. -/
def compareBinary (d : Digits) (n : Nat) (j : Int) : Ordering :=
  compare (d.digits * Nat.pow 10 d.exponent.toNat * Nat.pow 2 (-j).toNat)
    (n * Nat.pow 2 j.toNat * Nat.pow 10 (-d.exponent).toNat)

/-- The same number without trailing zeros among its digits. -/
def normalize (d : Digits) : Digits :=
  if h : d.digits ≠ 0 ∧ d.digits % 10 = 0 then normalize ⟨d.digits / 10, d.exponent + 1⟩ else d
termination_by d.digits
decreasing_by exact Nat.div_lt_self (Nat.pos_of_ne_zero h.1) (by decide)

end Digits

namespace Binary

/-- The decimal lies between the midpoints to the two neighbours. A midpoint itself belongs to the
neighbour with the even significand. -/
def readsBack (b : Binary) (d : Digits) : Bool :=
  let below := 4 * b.significand - (if b.narrowBelow then 1 else 2)
  let above := 4 * b.significand + 2
  let even := b.significand % 2 == 0
  let low := d.compareBinary below (b.exponent - 2)
  let high := d.compareBinary above (b.exponent - 2)
  (low == .gt || (even && low == .eq)) && (high == .lt || (even && high == .eq))

/-- The least `k` with `b < 10 ^ k`, for a positive number: every such number is at least
`10 ^ (-400)`, so the digits of `b * 10 ^ 400` before the point tell. -/
def magnitude (b : Binary) : Int :=
  ((Nat.toDigits 10 (b.numerator * Nat.pow 10 400 / b.denominator)).length : Int) - 400

/-- The best decimal with `n` digits that reads back, if there is one. Only the two neighbours on
the grid of `n` digits can be it; of two the nearer one is taken, and the upper one on a tie. -/
def withDigits? (b : Binary) (n : Nat) : Option Digits :=
  let e := b.magnitude - n
  let num := b.numerator * Nat.pow 10 (-e).toNat
  let den := b.denominator * Nat.pow 10 e.toNat
  let lower : Digits := ⟨num / den, e⟩
  let upper : Digits := ⟨num / den + 1, e⟩
  match b.readsBack lower, b.readsBack upper with
  | true, true => some (if 2 * (num % den) < den then lower else upper)
  | true, false => some lower
  | false, true => some upper
  | false, false => none

/-- The exact decimal value. -/
def exactDigits (b : Binary) : Digits :=
  if b.exponent < 0 then ⟨b.significand * Nat.pow 5 (-b.exponent).toNat, b.exponent⟩
  else ⟨b.numerator, 0⟩

/-- The fewest digits that read back; seventeen always suffice. -/
def shortest (b : Binary) : Digits :=
  (((List.range 17).findSome? fun n => b.withDigits? (n + 1)).getD b.exactDigits).normalize

end Binary

end Scriptlet.Decimal
