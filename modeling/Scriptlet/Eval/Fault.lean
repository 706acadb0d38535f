import Scriptlet.Span

/-! What can go wrong when a program runs. -/
namespace Scriptlet

/-- Operations on two values that do not take values of every kind. -/
inductive Operation where
  | addition | subtraction | multiplication | division | modulo | comparison
deriving DecidableEq, Repr

def Operation.text : Operation → String
  | addition => "addition" | subtraction => "subtraction" | multiplication => "multiplication"
  | division => "division" | modulo => "modulo" | comparison => "comparison"

/-- Operations on one number. -/
inductive SignOperation where
  | negation | plus
deriving DecidableEq, Repr

def SignOperation.text : SignOperation → String
  | negation => "negation" | plus => "unary plus"

/-- Parts of the language that can be read but not run. -/
inductive Feature where
  | arrayAccess | memberAccess | contextConditionals | returnStatements | forLoops
deriving DecidableEq, Repr

def Feature.text : Feature → String
  | arrayAccess => "Array access" | memberAccess => "Member access"
  | contextConditionals => "Context conditionals" | returnStatements => "Return statements"
  | forLoops => "For loops"

/-- What can be wrong with the arguments of a built-in function. -/
inductive ArgumentFault where
  | lengthCount | lengthText | substringCount | substringText | substringStart | substringLength
deriving DecidableEq, Repr

def ArgumentFault.text : ArgumentFault → String
  | lengthCount => "length() expects exactly 1 argument"
  | lengthText => "length() can only be called on strings"
  | substringCount => "substring() expects 2 or 3 arguments: substring(string, start, [length])"
  | substringText => "substring() first argument must be a string"
  | substringStart => "substring() second argument must be an integer"
  | substringLength => "substring() third argument must be an integer"

inductive Fault where
  | undefinedVariable (name : String)
  | invalidOperands (operation : Operation)
  | invalidOperand (operation : SignOperation)
  | divisionByZero
  | moduloByZero
  | integerOverflow
  | undefinedFunction (name : String)
  | complexCallee
  | invalidAssignmentTarget
  | notImplemented (feature : Feature)
  | invalidArgument (argument : ArgumentFault)
deriving DecidableEq, Repr

def Fault.message : Fault → String
  | undefinedVariable name => "Undefined variable '" ++ name ++ "'"
  | invalidOperands op => "Invalid operands for " ++ op.text
  | invalidOperand op => "Invalid operand for " ++ op.text
  | divisionByZero => "Division by zero"
  | moduloByZero => "Modulo by zero"
  | integerOverflow => "Integer overflow"
  | undefinedFunction name => "Function '" ++ name ++ "' is not defined"
  | complexCallee => "Function calls with complex expressions not yet supported"
  | invalidAssignmentTarget => "Invalid assignment target"
  | notImplemented feature => feature.text ++ " not yet implemented"
  | invalidArgument argument => argument.text

/-- A fault at the node of the program that failed. -/
structure RuntimeError where
  fault : Fault
  position : Position
deriving DecidableEq, Repr

end Scriptlet
