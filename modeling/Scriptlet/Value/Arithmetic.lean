import Scriptlet.Value.Basic
import Scriptlet.Eval.Fault
import Scriptlet.Tree.Basic

/-! Operations on values. Numbers of different kinds never mix, and integers never wrap around. -/
namespace Scriptlet

namespace Value

/-- Integers of 64 bits go from `-2 ^ 63` up to `2 ^ 63 - 1`. -/
def fitsWord (n : Int) : Bool := -9223372036854775808 ≤ n && n ≤ 9223372036854775807

/-- An integer result, or overflow if it does not have 64 bits. -/
def ofInt (n : Int) : Except Fault Value :=
  if fitsWord n then .ok (integer n) else .error .integerOverflow

def logicalNot (v : Value) : Value := bool !v.isTruthy

def negate : Value → Except Fault Value
  | integer n => ofInt (-n)
  | float x => .ok (float (-x))
  | _ => .error (.invalidOperand .negation)

/-- Numbers stay as they are. -/
def plus : Value → Except Fault Value
  | integer n => .ok (integer n)
  | float x => .ok (float x)
  | _ => .error (.invalidOperand .plus)

/-- The sum of two numbers of a kind, or two texts one behind the other. -/
def add : Value → Value → Except Fault Value
  | integer a, integer b => ofInt (a + b)
  | float x, float y => .ok (float (x + y))
  | string s, string t => .ok (string (s ++ t))
  | _, _ => .error (.invalidOperands .addition)

def subtract : Value → Value → Except Fault Value
  | integer a, integer b => ofInt (a - b)
  | float x, float y => .ok (float (x - y))
  | _, _ => .error (.invalidOperands .subtraction)

def multiply : Value → Value → Except Fault Value
  | integer a, integer b => ofInt (a * b)
  | float x, float y => .ok (float (x * y))
  | _, _ => .error (.invalidOperands .multiplication)

/-- The quotient; of integers, cut off toward zero. -/
def divide : Value → Value → Except Fault Value
  | integer a, integer b => if b = 0 then .error .divisionByZero else ofInt (a.tdiv b)
  | float x, float y => if y == 0.0 then .error .divisionByZero else .ok (float (x / y))
  | _, _ => .error (.invalidOperands .division)

/-- The remainder, with the sign of the dividend. It overflows where the quotient does. -/
def modulo : Value → Value → Except Fault Value
  | integer a, integer b =>
    if b = 0 then .error .moduloByZero
    else if fitsWord (a.tdiv b) then .ok (integer (a.tmod b))
    else .error .integerOverflow
  | float x, float y => if y == 0.0 then .error .moduloByZero else .ok (float (Decimal.remainder x y))
  | _, _ => .error (.invalidOperands .modulo)

/-- A comparison of two numbers of a kind. -/
def compare (int : Int → Int → Bool) (flt : Float → Float → Bool) : Value → Value → Except Fault Value
  | integer a, integer b => .ok (bool (int a b))
  | float x, float y => .ok (bool (flt x y))
  | _, _ => .error (.invalidOperands .comparison)

def lessThan : Value → Value → Except Fault Value := compare (· < ·) (· < ·)

def lessEqual : Value → Value → Except Fault Value := compare (· ≤ ·) (· ≤ ·)

def greaterThan : Value → Value → Except Fault Value := compare (· > ·) (· > ·)

def greaterEqual : Value → Value → Except Fault Value := compare (· ≥ ·) (· ≥ ·)

/-- Equality within a kind; values of different kinds are never equal, and NaN equals nothing. -/
def equals : Value → Value → Bool
  | integer a, integer b => a == b
  | float x, float y => x == y
  | string s, string t => s == t
  | bool a, bool b => a == b
  | _, _ => false

end Value

/-- The value of a binary operation. -/
def BinaryOp.apply (op : BinaryOp) (a b : Value) : Except Fault Value :=
  match op with
  | add => a.add b
  | sub => a.subtract b
  | mul => a.multiply b
  | div => a.divide b
  | mod => a.modulo b
  | eq => .ok (.bool (a.equals b))
  | ne => .ok (.bool !(a.equals b))
  | lt => a.lessThan b
  | le => a.lessEqual b
  | gt => a.greaterThan b
  | ge => a.greaterEqual b
  | and => .ok (.bool (a.isTruthy && b.isTruthy))
  | or => .ok (.bool (a.isTruthy || b.isTruthy))

/-- The value of a unary operation. -/
def UnaryOp.apply (op : UnaryOp) (a : Value) : Except Fault Value :=
  match op with
  | not => .ok a.logicalNot
  | negate => a.negate
  | plus => a.plus

/-- What the operators of a program compute. -/
structure Arithmetic where
  unary : UnaryOp → Value → Except Fault Value
  binary : BinaryOp → Value → Value → Except Fault Value

/-- The arithmetic of programs, in which integers have 64 bits. -/
def Arithmetic.word : Arithmetic := ⟨UnaryOp.apply, BinaryOp.apply⟩

end Scriptlet
