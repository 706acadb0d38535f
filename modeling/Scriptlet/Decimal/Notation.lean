import Scriptlet.Decimal.Shortest

/-! Texts of floating-point numbers: the shortest exact one, and one with a set number of places. -/
namespace Scriptlet.Decimal

/-- The digits of `n`, with zeros in front up to the given width. -/
def padded (width n : Nat) : String :=
  let ds := Nat.toDigits 10 n
  String.ofList (List.replicate (width - ds.length) '0' ++ ds)

/-- Sign and special values; `finite` writes the absolute value of the others. -/
def withSign (x : Float) (finite : Binary → String) : String :=
  if x.isNaN then "NaN"
  else
    let text := if x.isInf then "inf" else finite (Binary.ofFloat x)
    if isNegative x then "-" ++ text else text

/-- Numbers from `10 ^ (-4)` up to `10 ^ 16` are written positionally with at least one digit after
the point, all others with an exponent. -/
def Digits.text (d : Digits) : String :=
  let ds := Nat.toDigits 10 d.digits
  let point : Int := ds.length + d.exponent
  if -4 < point && point ≤ 16 then
    if 0 ≤ d.exponent then
      String.ofList (ds ++ List.replicate d.exponent.toNat '0' ++ ['.', '0'])
    else if 0 < point then
      String.ofList (ds.take point.toNat ++ '.' :: ds.drop point.toNat)
    else
      String.ofList ('0' :: '.' :: List.replicate (-point).toNat '0' ++ ds)
  else
    match ds with
    | [d₀] => String.ofList [d₀] ++ "e" ++ toString (point - 1)
    | d₀ :: rest => String.ofList (d₀ :: '.' :: rest) ++ "e" ++ toString (point - 1)
    | [] => ""

/-- The fewest digits that read back to the same number. -/
def text (x : Float) : String :=
  withSign x fun b => if b.significand == 0 then "0.0" else b.shortest.text

/-- A quotient rounded to the nearest natural number, ties to the even one. -/
def roundDiv (num den : Nat) : Nat :=
  let q := num / den
  match compare (2 * (num % den)) den with
  | .lt => q
  | .gt => q + 1
  | .eq => if q % 2 == 0 then q else q + 1

/-- The exact value rounded to the given number of places, ties to even. -/
def fixed (places : Nat) (x : Float) : String :=
  withSign x fun b =>
    let one := Nat.pow 10 places
    let n := roundDiv (b.numerator * one) b.denominator
    toString (n / one) ++ "." ++ padded places (n % one)

end Scriptlet.Decimal
