/-! Finite binary64 numbers as exact products of a natural number and a power of two. -/
namespace Scriptlet.Decimal

/-- The number `significand * 2 ^ exponent`. -/
structure Binary where
  significand : Nat
  exponent : Int
  /-- The gap to the neighbour below is half the gap to the neighbour above. -/
  narrowBelow : Bool
deriving DecidableEq

/-- The sign bit, which zeros and infinities carry too. -/
def isNegative (x : Float) : Bool := x.toBits >>> 63 == 1

/-- The absolute value of a finite number. -/
def Binary.ofFloat (x : Float) : Binary :=
  let e := ((x.toBits >>> 52) &&& 0x7FF).toNat
  let f := (x.toBits &&& 0xFFFFFFFFFFFFF).toNat
  if e == 0 then ⟨f, -1074, false⟩ else ⟨Nat.pow 2 52 + f, (e : Int) - 1075, f == 0 && 1 < e⟩

namespace Binary

/-- The number is the quotient of `numerator` and `denominator`. -/
def numerator (b : Binary) : Nat := b.significand * Nat.pow 2 b.exponent.toNat

def denominator (b : Binary) : Nat := Nat.pow 2 (-b.exponent).toNat

/-- The float with this absolute value, for a significand below `2 ^ 53` and an exponent from
`-1074` on: the significand is moved up as far as its width and the least exponent allow. -/
def toFloat (negative : Bool) (b : Binary) : Float :=
  let sign : Nat := if negative then Nat.pow 2 63 else 0
  let shift := min (52 - b.significand.log2) (b.exponent + 1074).toNat
  let m := b.significand * Nat.pow 2 shift
  let hidden := Nat.pow 2 52
  let field := if m < hidden then m else (b.exponent - shift + 1075).toNat * hidden + (m - hidden)
  Float.ofBits (sign + field).toUInt64

end Binary

/-- The remainder of truncated division, exact, with the sign of the dividend. It is NaN if the
dividend is infinite or an argument is NaN; an infinite divisor leaves the dividend as it is. -/
def remainder (x y : Float) : Float :=
  if x.isNaN || y.isNaN || x.isInf then 0.0 / 0.0
  else if y.isInf then x
  else
    let a := Binary.ofFloat x
    let b := Binary.ofFloat y
    let e := min a.exponent b.exponent
    let n := a.significand * Nat.pow 2 (a.exponent - e).toNat
    let d := b.significand * Nat.pow 2 (b.exponent - e).toNat
    Binary.toFloat (isNegative x) ⟨n % d, e, false⟩

end Scriptlet.Decimal
