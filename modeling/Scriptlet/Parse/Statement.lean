import Scriptlet.Parse.Expression

/-! Reading statements. As for expressions, every reader takes the readers of what stands inside. -/
namespace Scriptlet.Parse

/-- A type name. A missing one is reported and left empty. -/
def typeName : Parse String := do
  match ← require .identifier .expectedTypeName with
  | some t => return t.lexeme
  | none => return ""

/-- A type name behind a mark, if the mark is there. -/
def typeAfter (mark : Symbol) : Parse (Option String) := do
  if ← accept (.symbol mark) then return some (← typeName) else return none

def parameter : Parse Parameter := do
  let name ← expect .parameterName
  let _ ← expect .parameterColon
  return ⟨name.lexeme, ← typeName⟩

/-- The parameters of a function, when less than `n` tokens are left. -/
def parameters (n : Nat) : Parse (List Parameter) := do
  if ← check (.symbol .rightParen) then return [] else commaList parameter n

/-- No statement can follow: a token that closes the list stands there, or the end of input. -/
def ends (closes : TokenKind → Bool) (ts : List Token) : Bool :=
  atEnd ts || ts.head?.any fun t => closes t.kind

/-- Statements one after the other with newlines between them, up to a token that closes the list
or the end of input, when less than `n` tokens are left. A faulty statement is left out. -/
def statements (closes : TokenKind → Bool) (item : Parse Stmt) : Nat → Parse (List Stmt)
  | 0 => exhausted
  | n + 1 => do
    skipNewlines
    if ← looks (ends closes) then return []
    else
      let s? ← recover item
      return s?.toList ++ (← statements closes item n)

/-- Statements in braces. -/
def block (declaration : Parse Stmt) (n : Nat) : Parse (List Stmt) := do
  let _ ← expect .openBlock
  let body ← statements (· = .symbol .rightBrace) declaration n
  let _ ← expect .closeBlock
  return body

/-- The rest of a `let` statement whose keyword stands at `p`. -/
def letRest (expression : Parse Expr) (p : Position) : Parse Stmt := do
  let mutable ← accept (.keyword .mutKw)
  let name ← expect .variableName
  let type? ← typeAfter .colon
  let initial ← if ← accept (.symbol .assign) then some <$> expression else pure none
  let _ ← expect .declarationEnd
  return .declare p ⟨name.lexeme, type?, initial, mutable⟩

/-- The rest of a function declaration whose keyword stands at `p`. -/
def functionRest (declaration : Parse Stmt) (n : Nat) (p : Position) : Parse Stmt := do
  let name ← expect .functionName
  let _ ← expect .openParameters
  let params ← parameters n
  let _ ← expect .closeParameters
  let result ← typeAfter .arrow
  let body ← block declaration n
  return .function p ⟨name.lexeme, params, result⟩ body

/-- The rest of a conditional. An `else` belongs to the nearest one. -/
def ifRest (expression : Parse Expr) (inner : Parse Stmt) (p : Position) : Parse Stmt := do
  let condition ← expression
  let success ← inner
  if ← accept (.keyword .elseKw) then return .ifElse p condition success (← inner)
  else return .ifThen p condition success

def whileRest (expression : Parse Expr) (inner : Parse Stmt) (p : Position) : Parse Stmt := do
  let condition ← expression
  return .whileLoop p condition (← inner)

def forRest (expression : Parse Expr) (inner : Parse Stmt) (p : Position) : Parse Stmt := do
  let counter ← expect .loopVariable
  let _ ← expect .loopIn
  let start ← expression
  let _ ← expect .rangeDot
  let _ ← expect .rangeDot
  let stop ← expression
  return .forRange p counter.lexeme start stop (← inner)

def returnRest (expression : Parse Expr) (p : Position) : Parse Stmt := do
  let value ← if ← check (.symbol .semicolon) then pure none else some <$> expression
  let _ ← expect .returnEnd
  return .ret p value

/-- An expression with a semicolon behind it. -/
def expressionStatement (expression : Parse Expr) : Parse Stmt := do
  let t ← current
  let e ← expression
  let _ ← expect .expressionEnd
  return .expr t.position e

/-- A statement that declares nothing, when less than `n` tokens are left. -/
def statementStep (expression : Parse Expr) (inner declaration : Parse Stmt) (n : Nat) :
    Parse Stmt := do
  if let some t ← accept? (.keyword .ifKw) then ifRest expression inner t.position
  else if let some t ← accept? (.keyword .whileKw) then whileRest expression inner t.position
  else if let some t ← accept? (.keyword .forKw) then forRest expression inner t.position
  else if let some t ← accept? (.keyword .returnKw) then returnRest expression t.position
  else if ← check (.symbol .leftBrace) then
    let t ← current
    return .block t.position (← block declaration n)
  else expressionStatement expression

/-- A declaration or another statement, when less than `n` tokens are left. -/
def declarationStep (expression : Parse Expr) (inner declaration : Parse Stmt) (n : Nat) :
    Parse Stmt := do
  if let some t ← accept? (.keyword .fnKw) then functionRest declaration n t.position
  else if let some t ← accept? (.keyword .letKw) then letRest expression t.position
  else statementStep expression inner declaration n

mutual

/-- A statement that declares nothing, with a bound for all that stands inside it. -/
def statementWithin : Nat → Parse Stmt
  | 0 => exhausted
  | n + 1 =>
    statementStep (expressionWithin (n + 1)) (statementWithin n) (declarationWithin n) (n + 1)

def declarationWithin : Nat → Parse Stmt
  | 0 => exhausted
  | n + 1 =>
    declarationStep (expressionWithin (n + 1)) (statementWithin n) (declarationWithin n) (n + 1)

end

def declaration : Parse Stmt := fun stop ts => declarationWithin (ts.length + 1) stop ts

/-- All statements up to the end of input. -/
def program : Parse Program := fun stop ts =>
  statements (fun _ => false) (declarationWithin (ts.length + 1)) (ts.length + 1) stop ts

/-- The next statement, if one is left and it has no fault. -/
def nextStatement : Parse (Option Stmt) := do
  skipNewlines
  if ← looks atEnd then return none else recover declaration

end Scriptlet.Parse
