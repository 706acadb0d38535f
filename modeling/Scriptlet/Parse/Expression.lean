import Scriptlet.Parse.Basic
import Scriptlet.Tree.Basic

/-! Reading expressions. Every reader of a part takes the reader `inner` of the expressions inside
it, which are shorter because a token stands before them. -/
namespace Scriptlet

/-- The value of a literal token. Without a literal of its kind it is zero, empty or false. -/
def Token.leaf? (t : Token) : Option Value :=
  match t.kind, t.literal with
  | .integer, some (.integer n) => some (.integer n)
  | .integer, _ => some (.integer 0)
  | .float, some (.float x) => some (.float x)
  | .float, _ => some (.float 0.0)
  | .string, some (.string s) => some (.string s)
  | .string, _ => some (.string "")
  | .boolean, some (.bool b) => some (.bool b)
  | .boolean, _ => some (.bool false)
  | _, _ => none

/-- The text of a string token. -/
def Token.stringValue (t : Token) : String :=
  match t.literal with
  | some (.string s) => s
  | _ => ""

def UnaryOp.ofKind? : TokenKind → Option UnaryOp
  | .keyword .notKw | .symbol .bang => some .not
  | .symbol .minus => some .negate
  | .symbol .plus => some .plus
  | _ => none

namespace Parse

/-- A table of binary operators of one level. -/
abbrev OpTable := TokenKind → Option BinaryOp

def orOps : OpTable
  | .keyword .orKw => some .or
  | _ => none

def andOps : OpTable
  | .keyword .andKw => some .and
  | _ => none

def equalityOps : OpTable
  | .symbol .equal => some .eq
  | .symbol .notEqual => some .ne
  | _ => none

def comparisonOps : OpTable
  | .symbol .less => some .lt
  | .symbol .lessEqual => some .le
  | .symbol .greater => some .gt
  | .symbol .greaterEqual => some .ge
  | _ => none

def termOps : OpTable
  | .symbol .plus => some .add
  | .symbol .minus => some .sub
  | _ => none

def factorOps : OpTable
  | .symbol .star => some .mul
  | .symbol .slash => some .div
  | .symbol .percent => some .mod
  | _ => none

/-- The levels of binary operators, the loosest first. -/
def levels : List OpTable := [orOps, andOps, equalityOps, comparisonOps, termOps, factorOps]

/-- What an operand starts with: a tree that is a single token, or a parenthesis. -/
inductive Opening where
  | leaf (e : Expr)
  | paren

/-- What the token opens an operand with. -/
def opening? (t : Token) : Option Opening :=
  match t.leaf? with
  | some v => some (.leaf (.literal t.position v))
  | none =>
    if t.kind = .identifier then some (.leaf (.name t.position t.lexeme))
    else if t.kind = .symbol .leftParen then some .paren
    else none

/-- The first token of an operand. Reading stops where there is none. -/
def opening : Parse Opening := do
  match ← take? opening? with
  | some o => return o
  | none => fail .expectedExpression

/-- A leaf, or an expression in parentheses. -/
def primary (inner : Parse Expr) : Parse Expr := do
  match ← opening with
  | .leaf e => return e
  | .paren =>
    let e ← inner
    let _ ← expect .closeParen
    return e

/-- The arguments of a call and the closing parenthesis. -/
def arguments (inner : Parse Expr) (n : Nat) : Parse (List Expr) := do
  let args ← if ← check (.symbol .rightParen) then pure [] else commaList inner n
  let _ ← expect .closeArguments
  return args

/-- A dot that is not the first of two. -/
def memberDot (ts : List Token) : Bool :=
  match ts with
  | t :: ts => t.kind = .symbol .dot && !ts.head?.any (·.kind = .symbol .dot)
  | [] => false

/-- The name of a member and the dot before it, if they are there. -/
def memberName? : Parse (Option String) := do
  if ← looks memberDot then
    advance
    return some (← expect .propertyName).lexeme
  else return none

/-- Calls, indexes and members behind an expression, when less than `n` tokens are left. They stand
at the position of the expression. -/
def chain (inner : Parse Expr) : Nat → Expr → Parse Expr
  | 0, _ => exhausted
  | n + 1, e => do
    if ← accept (.symbol .leftParen) then
      let args ← arguments inner n
      chain inner n (.call e.pos e args)
    else if ← accept (.symbol .leftBracket) then
      let i ← inner
      let _ ← expect .closeIndex
      chain inner n (.index e.pos e i)
    else
      match ← memberName? with
      | some field => chain inner n (.member e.pos e field)
      | none => return e

/-- The start of a context condition: `if`, a name and an equality sign. -/
def contextAhead (ts : List Token) : Bool :=
  match ts with
  | t₀ :: t₁ :: t₂ :: _ =>
    t₀.kind = .keyword .ifKw && t₁.kind = .identifier && t₂.kind = .symbol .equal
  | _ => false

/-- A context condition behind an expression, if there is one. Its equality sign is doubled. -/
def contextual (e : Expr) : Parse Expr := do
  if ← looks contextAhead then
    let _ ← expect .contextIf
    let _ ← expect .contextName
    let _ ← expect .contextEquals
    let _ ← expect .contextEquals
    match ← require .string .expectedContextString with
    | some t => return .context e.pos e t.stringValue
    | none => return e
  else return e

/-- A primary expression with all that stands behind it. -/
def operand (inner : Parse Expr) (n : Nat) : Parse Expr := do
  contextual (← chain inner n (← primary inner))

/-- The unary operators at the front of the tokens, and the tokens behind them. -/
def splitUnary : List Token → List (Position × UnaryOp) × List Token
  | [] => ([], [])
  | t :: ts =>
    match UnaryOp.ofKind? t.kind with
    | none => ([], t :: ts)
    | some op => let (ops, rest) := splitUnary ts; ((t.position, op) :: ops, rest)

/-- All unary operators that come next. -/
def unaryOps : Parse (List (Position × UnaryOp)) := fun _ ts =>
  ⟨.ok (splitUnary ts).1, [], (splitUnary ts).2⟩

/-- Any number of unary operators, then an operand. -/
def unary (next : Parse Expr) : Parse Expr := do
  let ops ← unaryOps
  let e ← next
  return ops.foldr (fun (p, op) e => .unary p op e) e

/-- The operators of one level behind a first operand, grouped to the left, when less than `n`
tokens are left. -/
def binaryTail (ops : OpTable) (next : Parse Expr) : Nat → Expr → Parse Expr
  | 0, _ => exhausted
  | n + 1, lhs => do
    match ← take? fun t => (ops t.kind).map fun op => (t.position, op) with
    | none => return lhs
    | some (p, op) =>
      let rhs ← next
      binaryTail ops next n (.binary p op lhs rhs)

def binaryLevel (ops : OpTable) (next : Parse Expr) (n : Nat) : Parse Expr := do
  binaryTail ops next n (← next)

/-- Binary operators of all levels. -/
def binary (next : Parse Expr) (n : Nat) : Parse Expr :=
  levels.foldr (fun ops next => binaryLevel ops next n) next

/-- An assignment to an expression, if its sign stands behind it. The target has to be a name; any
other one is reported and stands alone as the result. -/
def assignTail (inner : Parse Expr) (lhs : Expr) : Parse Expr := do
  match ← accept? (.symbol .assign) with
  | none => return lhs
  | some t =>
    let rhs ← inner
    if lhs.name?.isSome then return .assign t.position lhs rhs
    else
      reportAt .invalidAssignmentTarget t
      return lhs

/-- An expression with all its operators. Assignment binds loosest and groups to the right. -/
def assignment (inner : Parse Expr) (n : Nat) : Parse Expr := do
  assignTail inner (← binary (unary (operand inner n)) n)

/-- An expression, when less than `n` tokens are left. -/
def expressionWithin : Nat → Parse Expr
  | 0 => exhausted
  | n + 1 => assignment (expressionWithin n) (n + 1)

def expression : Parse Expr := fun stop ts => expressionWithin (ts.length + 1) stop ts

end Parse

end Scriptlet
