import Scriptlet.Decimal.Notation
import Scriptlet.Dump

/-! The values of the language: integers, floating-point numbers, texts and truth values. -/
namespace Scriptlet

/-- A value. Integers that a program computes have 64 bits. -/
inductive Value where
  | integer (n : Int)
  | float (x : Float)
  | string (s : String)
  | bool (b : Bool)
deriving DecidableEq

namespace Value

instance : Inhabited Value := ⟨integer 0⟩

/-- The form in which a program prints a value. Floating-point numbers have six places. -/
def text : Value → String
  | integer n => toString n
  | float x => Decimal.fixed 6 x
  | string s => s
  | bool b => if b then "true" else "false"

/-- Everything but zero, the empty text and falsehood counts as true. -/
def isTruthy : Value → Bool
  | integer n => n != 0
  | float x => x != 0.0
  | string s => s != ""
  | bool b => b

/-- Literals in dumps. -/
def dump : Value → Dump
  | integer n => .apply "Integer" [.atom (toString n)]
  | float x => .apply "Float" [.atom (Decimal.text x)]
  | string s => .apply "String" [.string s]
  | bool b => .apply "Bool" [.bool b]

end Value

end Scriptlet
