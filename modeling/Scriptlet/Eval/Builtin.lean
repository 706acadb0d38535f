import Scriptlet.Value.Basic
import Scriptlet.Eval.Fault

/-! The console, and the built-in functions. -/
namespace Scriptlet

/-- What a program has written, and the lines that it can still read. -/
structure Console where
  output : String
  input : List String
  /-- How many lines were asked for, those past the end of input included. -/
  reads : Nat
deriving DecidableEq

namespace Console

/-- A console with these lines to read. -/
def ofLines (lines : List String) : Console := ⟨"", lines, 0⟩

def write (c : Console) (s : String) : Console := { c with output := c.output ++ s }

def writeLine (c : Console) (s : String) : Console := { c with output := c.output ++ s ++ "\n" }

/-- The next line, if there is one. -/
def readLine (c : Console) : Option String × Console :=
  (c.input.head?, { c with input := c.input.tail, reads := c.reads + 1 })

end Console

inductive Builtin where
  | print | input | length | substring
deriving DecidableEq, Repr

namespace Builtin

def name : Builtin → String
  | print => "print" | input => "input" | length => "length" | substring => "substring"

def all : List Builtin := [print, input, length, substring]

def named? (name : String) : Option Builtin := all.find? (·.name == name)

/-- The number of characters of a text, kept in 64 bits: modulo `2 ^ 64`. -/
def lengthOf : List Value → Except Fault Value
  | [.string s] => .ok (.integer (Int.bmod s.length 18446744073709551616))
  | [_] => .error (.invalidArgument .lengthText)
  | _ => .error (.invalidArgument .lengthCount)

/-- The integer as a size. Sizes are not negative. -/
def size? (n : Int) : Option Nat := if 0 ≤ n then some n.toNat else none

/-- The difference of two sizes, or overflow if it is no size. -/
def difference (a b : Nat) : Except Fault Nat :=
  if b ≤ a then .ok (a - b) else .error .integerOverflow

/-- The characters from index `start` on, at most `most` of them if it is given. A negative bound
gives the empty text. -/
def slice (s : String) (start : Nat) (most : Option Int) : Except Fault String :=
  let chars (take : Nat) := String.ofList ((s.toList.drop start).take take)
  match most with
  | none => do return chars (← difference s.length start)
  | some n =>
    match size? n with
    | some n => do return chars (min n (← difference s.length start))
    | none => .ok ""

/-- A part of a text. A start outside the text gives the empty text, whatever the bound is. -/
def substringOf : List Value → Except Fault Value
  | [text, start] => part text start none
  | [text, start, most] => part text start (some most)
  | _ => .error (.invalidArgument .substringCount)
where
  part (text start : Value) (most : Option Value) : Except Fault Value :=
    match text, start with
    | .string s, .integer i =>
      match size? i with
      | none => .ok (.string "")
      | some start =>
        if s.length ≤ start then .ok (.string "")
        else match most with
          | none => .string <$> slice s start none
          | some (.integer n) => .string <$> slice s start (some n)
          | some _ => .error (.invalidArgument .substringLength)
    | .string _, _ => .error (.invalidArgument .substringStart)
    | _, _ => .error (.invalidArgument .substringText)

/-- The result of a call, and the console behind it. `print` writes its arguments with blanks
between them, `input` writes its first argument and reads a line. -/
def call (b : Builtin) (arguments : List Value) (c : Console) : Except Fault Value × Console :=
  match b with
  | print => (.ok (.integer 0), c.writeLine (String.intercalate " " (arguments.map Value.text)))
  | input =>
    let prompted := match arguments with
      | [] => c
      | v :: _ => c.write v.text
    let (line, c) := prompted.readLine
    (.ok (.string (line.getD "")), c)
  | length => (lengthOf arguments, c)
  | substring => (substringOf arguments, c)

end Builtin

end Scriptlet
