import Scriptlet.Value.Basic

/-! Program trees: expressions and statements, each node with its position. -/
namespace Scriptlet

inductive BinaryOp where
  | add | sub | mul | div | mod | eq | ne | lt | le | gt | ge | and | or
deriving DecidableEq, Repr

inductive UnaryOp where
  | not | negate | plus
deriving DecidableEq, Repr

inductive Expr where
  | literal (pos : Position) (value : Value)
  | name (pos : Position) (id : String)
  | binary (pos : Position) (op : BinaryOp) (lhs rhs : Expr)
  /-- An assignment. Only names can be assigned to, which is checked when the program runs. -/
  | assign (pos : Position) (target value : Expr)
  | unary (pos : Position) (op : UnaryOp) (operand : Expr)
  | call (pos : Position) (callee : Expr) (arguments : List Expr)
  | index (pos : Position) (array index : Expr)
  | member (pos : Position) (object : Expr) (field : String)
  /-- An expression that is meant for one deployment context only. -/
  | context (pos : Position) (inner : Expr) (context : String)

namespace Expr

def pos : Expr → Position
  | literal p _ | name p _ | binary p _ _ _ | assign p _ _ | unary p _ _ | call p _ _
  | index p _ _ | member p _ _ | context p _ _ => p

/-- The identifier, if the expression is one. -/
def name? : Expr → Option String
  | name _ id => some id
  | _ => none

end Expr

/-- What a `let` statement declares. -/
structure Declaration where
  name : String
  typeName : Option String
  initial : Option Expr
  mutable : Bool

structure Parameter where
  name : String
  typeName : String
deriving DecidableEq, Repr

/-- The head of a function declaration. -/
structure Signature where
  name : String
  parameters : List Parameter
  returnType : Option String
deriving DecidableEq, Repr

inductive Stmt where
  | expr (pos : Position) (value : Expr)
  | declare (pos : Position) (declaration : Declaration)
  | block (pos : Position) (body : List Stmt)
  | function (pos : Position) (signature : Signature) (body : List Stmt)
  | ret (pos : Position) (value : Option Expr)
  | ifThen (pos : Position) (condition : Expr) (success : Stmt)
  | ifElse (pos : Position) (condition : Expr) (success failure : Stmt)
  | whileLoop (pos : Position) (condition : Expr) (body : Stmt)
  | forRange (pos : Position) (counter : String) (start stop : Expr) (body : Stmt)

def Stmt.pos : Stmt → Position
  | expr p _ | declare p _ | block p _ | function p _ _ | ret p _ | ifThen p _ _
  | ifElse p _ _ _ | whileLoop p _ _ | forRange p _ _ _ _ => p

/-- A program is the list of its top-level statements. -/
abbrev Program := List Stmt

end Scriptlet
